import S3Proxy.Log.Handover

/-!
# What the reader of the queue gets

The reader takes the lines in the order of the claims, and of each thread in the order in which the
thread pushed them.

## Main results

`popped_eq`: what has been taken are the first of the lines that slots were claimed for, and each
thread has claimed slots for its lines in the order in which it pushed them, up to the one that it
is still waiting with.  So nothing is lost, doubled or overtaken between a thread and the reader.

`drained_of_fails`: `try_pop` comes back empty only if the reader has got every line that a slot was
claimed for, or if the thread whose line is the next one has not marked its slot yet.

`ReadInv` is the reader's side of the invariant: which buffers are freed, where in the claims it is,
and that the slots it has come to hold the lines of the claims (`ReadInv.claims_of_writeState`).
`ReadInv.step` keeps it; `ReadInv.write` is any step of a thread that does not touch the queue of
buffers, and `ReadInv.pop`, `ReadInv.allocate`, `ReadInv.link` and `ReadInv.reset` are the others.
`Inv` is both sides together, and `brought_of_step` is the step behind the first result.

## Hypotheses

A buffer has a slot, and no step of the run has used a freed buffer.  Any number of threads push at
any time.

## Where it is used

`Log.NanoLogger` has the reader's thread, `Log.Shutdown` its end, for which the second result is
what counts.  `Log.Release` says when the hypothesis about freed buffers holds.
-/

namespace S3Proxy

namespace Log

namespace QueueBuffer

variable {ι α : Type*}

/-- How the reader, the queue and the claims belong together. -/
structure ReadInv (size : ℕ) (s : State ι α) : Prop where
  made : s.freed ++ s.queue = List.range (s.freed.length + s.queue.length)
  linking : ∀ i, s.pc i = .linking → s.freed.length + s.queue.length = s.current
  notLinking : (∀ i, s.pc i ≠ .linking) → s.freed.length + s.queue.length = s.current + 1
  flag : s.flag = true ↔ ∃ i, s.pc i = .linked
  idle : s.reading = none → s.releasing = false →
    s.readIndex = 0 ∧ s.popped.length = s.freed.length * size
  reading : ∀ b, s.reading = some b → s.releasing = false ∧ s.queue.head? = some b ∧
    s.readIndex < size ∧ s.popped.length = s.freed.length * size + s.readIndex
  releasing : s.releasing = true → s.reading = none ∧ s.readIndex = 0 ∧
    s.popped.length = (s.freed.length + 1) * size
  popped : s.popped = (s.claims.take s.popped.length).map Prod.snd

variable {size : ℕ} {s t : State ι α} {i : ι} {b : ℕ}

lemma ReadInv.freed_eq (h : ReadInv size s) : s.freed = List.range s.freed.length := by
  have htake := congrArg (List.take s.freed.length) h.made
  rwa [List.take_left, List.take_range, Nat.min_eq_left (by omega)] at htake

/-- The front of the queue is the first buffer that is not freed. -/
lemma ReadInv.head_eq (h : ReadInv size s) (hhead : s.queue.head? = some b) :
    b = s.freed.length := by
  obtain ⟨queue, hqueue⟩ := List.head?_eq_some_iff.mp hhead
  have hget := congrArg (fun l => l[s.freed.length]?) h.made
  rw [hqueue] at hget
  simpa using hget

lemma ReadInv.length_le (h : ReadInv size s) : s.popped.length ≤ s.claims.length := by
  have hlength := congrArg List.length h.popped
  rw [List.length_map, List.length_take] at hlength
  omega

lemma readInv_init : ReadInv size ({} : State ι α) where
  made := rfl
  linking _ h := by cases h
  notLinking _ := rfl
  flag := by simp
  idle _ _ := by simp
  reading _ h := by cases h
  releasing h := by cases h
  popped := rfl

/-- What the reader takes is the next line. -/
lemma ReadInv.claims_of_writeState (h : ReadInv size s) (hw : WriteInv size s.toWriting)
    (hreading : s.reading = some b) (hstate : (s.buffers b).writeState s.readIndex = true) :
    ∃ i line, s.claims[s.popped.length]? = some (i, line) ∧
      (s.buffers b).items s.readIndex = some line := by
  obtain ⟨-, hhead, -, hlength⟩ := h.reading b hreading
  have hb := h.head_eq hhead
  have hcontents := (hw.contents b s.readIndex hstate).2
  rwa [hlength, ← hb]

lemma ReadInv.pop {line : α} (h : ReadInv size s) (hw : WriteInv size s.toWriting)
    (hreading : s.reading = some b) (hstate : (s.buffers b).writeState s.readIndex = true)
    (hitem : (s.buffers b).items s.readIndex = some line) : ReadInv size (s.take size line) := by
  obtain ⟨hreleasing, hhead, hlt, hlength⟩ := h.reading b hreading
  obtain ⟨i, line', hget, hitem'⟩ := h.claims_of_writeState hw hreading hstate
  obtain rfl : line' = line := Option.some.inj (hitem'.symm.trans hitem)
  have hpopped : s.popped ++ [line'] =
      (s.claims.take (s.popped ++ [line']).length).map Prod.snd := by
    conv_lhs => rw [h.popped]
    rw [List.length_append, List.length_singleton, List.take_add_one, hget]
    simp
  have hsucc : (s.popped ++ [line']).length = s.popped.length + 1 := by simp
  have hmul : (s.freed.length + 1) * size = s.freed.length * size + size := Nat.succ_mul ..
  unfold State.take
  split
  · rename_i hlast
    refine ⟨h.made, h.linking, h.notLinking, h.flag, nofun, nofun,
      fun _ => ⟨rfl, rfl, ?_⟩, hpopped⟩
    show (s.popped ++ [line']).length = (s.freed.length + 1) * size
    omega
  · rename_i hlast
    refine ⟨h.made, h.linking, h.notLinking, h.flag, ?_, ?_, ?_, hpopped⟩
    · intro hnone
      cases hreading.symm.trans hnone
    · intro b' hb'
      obtain rfl : b = b' := Option.some.inj (hreading.symm.trans hb')
      refine ⟨hreleasing, hhead, ?_, ?_⟩
      · show s.readIndex + 1 < size
        omega
      · show (s.popped ++ [line']).length = s.freed.length * size + (s.readIndex + 1)
        omega
    · intro hreleasing'
      cases hreleasing.symm.trans hreleasing'

/-- What holds in every state of a run. -/
structure Inv (size : ℕ) (s : State ι α) : Prop where
  write : WriteInv size s.toWriting
  read : ReadInv size s

lemma inv_init (hsize : 0 < size) : Inv size ({} : State ι α) := ⟨writeInv_init hsize, readInv_init⟩

/-! ### An empty-handed reader -/

/-- `try_pop` would return `false`. -/
def Fails (s : State ι α) : Prop :=
  s.reading = none ∧ s.releasing = false ∧ s.queue = [] ∨
    ∃ b, s.reading = some b ∧ (s.buffers b).writeState s.readIndex = false

/-- A thread whose slot is claimed and not marked. -/
def Writer.unmarked : Writer α → Bool
  | .claimed .. | .loaded .. | .constructed .. => true
  | _ => false

lemma WriteInv.length_le {s : Writing ι α} (h : WriteInv size s) :
    s.claims.length ≤ (s.current + 1) * size := by
  have hmul : (s.current + 1) * size = s.current * size + size := Nat.succ_mul ..
  by_cases hhanding : ∀ i, (s.pc i).handing = false
  · have htotal := h.total hhanding
    omega
  · obtain ⟨i, hi⟩ := not_forall.mp hhanding
    have hlength := ((h.threads i).of_handing (by simpa using hi)).1
    omega

/-- A slot that is claimed and not marked has its thread. -/
lemma WriteInv.exists_unmarked {s : Writing ι α} {k : ℕ} (h : WriteInv size s)
    (hle : b ≤ s.current) (hk : k < size) (hlt : b * size + k < s.claims.length)
    (hstate : (s.buffers b).writeState k = false) :
    ∃ i line, s.claims[b * size + k]? = some (i, line) ∧ (s.pc i).unmarked = true := by
  have hnotCounted : k ∉ (s.buffers b).counted := by
    intro hmem
    rw [(h.counted b k hmem).2.2] at hstate
    cases hstate
  have hcurrent : b = s.current := by
    by_contra hne
    have hfull := h.full b (by omega)
    exact hnotCounted (hfull ▸ Finset.mem_range.mpr hk)
  subst hcurrent
  obtain ⟨i, hslot⟩ := (h.covered k hk hlt).resolve_left hnotCounted
  have hfits := h.threads i
  obtain ⟨line, howns⟩ := owns_of_slot hfits hslot
  refine ⟨i, line, howns.claims, ?_⟩
  cases hpc : s.pc i with
  | stored b' k' =>
      rw [hpc] at hfits hslot
      obtain rfl : k' = k := Option.some.inj hslot
      obtain ⟨rfl, -, hmark⟩ := hfits
      simp [hmark] at hstate
  | claimed line' k' => rfl
  | loaded line' b' k' => rfl
  | constructed b' k' => rfl
  | _ =>
      rw [hpc] at hslot
      cases hslot

/-- The reader's buffer is one that has been made. -/
lemma Inv.freed_le (h : Inv size s) (hqueue : s.queue ≠ []) : s.freed.length ≤ s.current := by
  have hpos := List.length_pos_iff.mpr hqueue
  by_cases hlinking : ∃ i, s.pc i = .linking
  · obtain ⟨i, hi⟩ := hlinking
    have hmade := h.read.linking i hi
    omega
  · have hmade := h.read.notLinking (not_exists.mp hlinking)
    omega

/-- An empty queue has been read to the end of the last buffer. -/
lemma Inv.length_le_of_queue_eq_nil (h : Inv size s) (hqueue : s.queue = []) :
    s.claims.length ≤ s.freed.length * size := by
  by_cases hlinking : ∃ i, s.pc i = .linking
  · obtain ⟨i, hi⟩ := hlinking
    have hmade := h.read.linking i hi
    have hlength := ((h.write.threads i).of_handing (by rw [hi]; rfl)).1
    rw [hqueue, List.length_nil, Nat.add_zero] at hmade
    rw [hlength, hmade]
  · have hmade := h.read.notLinking (not_exists.mp hlinking)
    rw [hqueue, List.length_nil, Nat.add_zero] at hmade
    rw [hmade]
    exact h.write.length_le

/-- `try_pop` comes back empty only if the reader has got every line that a slot was claimed for, or
if the thread that claimed the next slot has not marked it yet. -/
lemma Inv.drained (h : Inv size s) (hfails : Fails s) :
    s.popped = s.claims.map Prod.snd ∨ ∃ i line, s.claims[s.popped.length]? = some (i, line) ∧
      (s.pc i).unmarked = true := by
  rcases Nat.lt_or_ge s.popped.length s.claims.length with hlt | hle
  · right
    rcases hfails with ⟨hreading, hreleasing, hqueue⟩ | ⟨b, hreading, hstate⟩
    · have hlength := (h.read.idle hreading hreleasing).2
      have hall := h.length_le_of_queue_eq_nil hqueue
      omega
    · obtain ⟨-, hhead, hindex, hlength⟩ := h.read.reading b hreading
      have hb := h.read.head_eq hhead
      have hcurrent : b ≤ s.current := by
        rw [hb]
        apply h.freed_le
        rintro hnil
        simp [hnil] at hhead
      rw [hlength, ← hb] at hlt ⊢
      exact h.write.exists_unmarked hcurrent hindex hlt hstate
  · left
    conv_lhs => rw [h.read.popped]
    rw [List.take_of_length_le hle]

variable [DecidableEq ι]

/-! ### Steps -/

/-- A thread that neither links a buffer nor has just linked one. -/
lemma ReadInv.write {w : Writing ι α} {q : Writer α} (h : ReadInv size s)
    (hclaims : s.claims <+: w.claims) (hcurrent : w.current = s.current)
    (hpc : w.pc = Function.update s.pc i q) (hi : (s.pc i).handing = false)
    (hq : q.handing = false) : ReadInv size (s.write w) := by
  have hsame (x : Writer α) (hx : x.handing = true) (j : ι) : w.pc j = x ↔ s.pc j = x := by
    rw [hpc]
    by_cases hji : j = i
    · subst hji
      rw [Function.update_self]
      constructor
      · rintro rfl
        simp [hq] at hx
      · rintro rfl
        simp [hi] at hx
    · rw [Function.update_of_ne hji]
  constructor
  · exact h.made
  · intro j hj
    exact (h.linking j ((hsame _ rfl j).mp hj)).trans hcurrent.symm
  · intro hnone
    rw [show (s.write w).current = s.current from hcurrent]
    exact h.notLinking fun j hj => hnone j ((hsame _ rfl j).mpr hj)
  · exact h.flag.trans (exists_congr fun j => (hsame _ rfl j).symm)
  · exact h.idle
  · exact h.reading
  · exact h.releasing
  · obtain ⟨rest, hrest⟩ := hclaims
    show s.popped = (w.claims.take s.popped.length).map Prod.snd
    rw [← hrest, List.take_append_of_le_length h.length_le]
    exact h.popped

lemma ReadInv.allocate (h : ReadInv size s) (hw : WriteInv size s.toWriting)
    (hpc : s.pc i = .switching) : ReadInv size (s.write (s.allocate i)) := by
  have hmade : s.freed.length + s.queue.length = s.current + 1 := by
    apply h.notLinking
    intro j hj
    obtain rfl := hw.alone i j (by rw [hpc]; rfl) (by rw [hj]; rfl)
    cases hpc.symm.trans hj
  constructor
  · exact h.made
  · exact fun _ _ => hmade
  · exact fun hnone => absurd (Writing.pc_move ..) (hnone i)
  · refine h.flag.trans (exists_congr fun j => ?_)
    show _ ↔ Function.update s.pc i .linking j = .linked
    by_cases hji : j = i
    · subst hji
      simp [hpc]
    · rw [Function.update_of_ne hji]
  · exact h.idle
  · exact h.reading
  · exact h.releasing
  · exact h.popped

lemma ReadInv.link (h : ReadInv size s) (hw : WriteInv size s.toWriting)
    (hpc : s.pc i = .linking) :
    ReadInv size
      { s.write (s.move i .linked) with queue := s.queue ++ [s.current], flag := true } := by
  have hmade := h.linking i hpc
  have hlength : s.freed.length + (s.queue ++ [s.current]).length = s.current + 1 := by
    rw [List.length_append, List.length_singleton]
    omega
  constructor
  · show s.freed ++ (s.queue ++ [s.current]) = List.range (s.freed.length + _)
    rw [hlength, List.range_succ, ← hmade, ← h.made, List.append_assoc, hmade]
  · intro j hj
    exfalso
    by_cases hji : j = i
    · subst hji
      cases (s.pc_move j .linked).symm.trans hj
    · have hj' : s.pc j = .linking := (s.pc_move_of_ne hji .linked).symm.trans hj
      exact hji (hw.alone j i (by rw [hj']; rfl) (by rw [hpc]; rfl))
  · exact fun _ => hlength
  · exact iff_of_true rfl ⟨i, s.pc_move i .linked⟩
  · exact h.idle
  · intro b hb
    obtain ⟨hreleasing, hhead, hread⟩ := h.reading b hb
    exact ⟨hreleasing, by simp [List.head?_append, hhead], hread⟩
  · exact h.releasing
  · exact h.popped

lemma ReadInv.reset (h : ReadInv size s) (hw : WriteInv size s.toWriting)
    (hpc : s.pc i = .linked) : ReadInv size { s.write (s.reset i) with flag := false } := by
  have halone (j : ι) (hj : (s.pc j).inSetup = true) : j = i :=
    hw.alone j i hj (by rw [hpc]; rfl)
  have hmade : s.freed.length + s.queue.length = s.current + 1 := by
    apply h.notLinking
    intro j hj
    obtain rfl := halone j (by rw [hj]; rfl)
    cases hpc.symm.trans hj
  have hnone (j : ι) : (Function.update s.pc i .outside j).inSetup = false := by
    by_cases hji : j = i
    · rw [hji, Function.update_self]
      rfl
    · rw [Function.update_of_ne hji]
      by_contra hj
      exact hji (halone j (by simpa using hj))
  constructor
  · exact h.made
  · intro j hj
    have hj' := hnone j
    rw [show Function.update s.pc i .outside j = .linking from hj] at hj'
    cases hj'
  · exact fun _ => hmade
  · refine iff_of_false (by simp) ?_
    rintro ⟨j, hj⟩
    have hj' := hnone j
    rw [show Function.update s.pc i .outside j = .linked from hj] at hj'
    cases hj'
  · exact h.idle
  · exact h.reading
  · exact h.releasing
  · exact h.popped

/-- **Every step** keeps what the reader relies on, unless it uses a freed buffer. -/
lemma ReadInv.step {e : Label ι α} (h : ReadInv size s) (hw : WriteInv size s.toWriting)
    (hsize : 0 < size) (hmoves : Moves size s e t) (hdefined : t.undefined = false) :
    ReadInv size t := by
  have hsame : s.claims <+: s.claims := List.prefix_refl _
  cases hmoves with
  | push i line hpc => exact h.write hsame rfl rfl (by rw [hpc]; rfl) rfl
  | claim i line hpc =>
      unfold Writing.claim
      split
      · exact h.write (List.prefix_append _ _) rfl rfl (by rw [hpc]; rfl) rfl
      · exact h.write hsame rfl rfl (by rw [hpc]; rfl) rfl
  | spin i line hpc hlt => exact h.write hsame rfl rfl (by rw [hpc]; rfl) rfl
  | load i line k hpc => exact h.write hsame rfl rfl (by rw [hpc]; rfl) rfl
  | construct i line b k hpc hlive => exact h.write hsame rfl rfl (by rw [hpc]; rfl) rfl
  | store i b k hpc hlive => exact h.write hsame rfl rfl (by rw [hpc]; rfl) rfl
  | count i b k hpc hlive =>
      refine h.write hsame rfl rfl (by rw [hpc]; rfl) ?_
      split <;> rfl
  | allocate i hpc => exact h.allocate hw hpc
  | link i hpc hflag => exact h.link hw hpc
  | reset i hpc => exact h.reset hw hpc
  | stray => cases hdefined
  | fetch hreading hreleasing hflag =>
      obtain ⟨hindex, hlength⟩ := h.idle hreading hreleasing
      refine ⟨h.made, h.linking, h.notLinking, h.flag, fun _ _ => ⟨hindex, hlength⟩, ?_, ?_,
        h.popped⟩
      · intro b hb
        refine ⟨hreleasing, hb, ?_, ?_⟩
        · show s.readIndex < size
          omega
        · show s.popped.length = s.freed.length * size + s.readIndex
          omega
      · intro hreleasing'
        cases hreleasing.symm.trans hreleasing'
  | pop b line hreading hlive hstate hitem => exact h.pop hw hreading hstate hitem
  | release b queue hreleasing hflag hqueue =>
      obtain ⟨hreading, hindex, hlength⟩ := h.releasing hreleasing
      have hmade := h.made
      have hsum : (s.freed ++ [b]).length + queue.length = s.freed.length + s.queue.length := by
        rw [hqueue, List.length_append, List.length_singleton, List.length_cons]
        omega
      constructor
      · show (s.freed ++ [b]) ++ queue = List.range ((s.freed ++ [b]).length + queue.length)
        rw [hsum, ← hmade, hqueue, List.append_assoc, List.singleton_append]
      · exact fun j hj => hsum.trans (h.linking j hj)
      · exact fun hnone => hsum.trans (h.notLinking hnone)
      · exact h.flag
      · intro _ _
        refine ⟨hindex, ?_⟩
        show s.popped.length = (s.freed ++ [b]).length * size
        rw [hlength, List.length_append, List.length_singleton]
      · intro b' hb'
        cases hreading.symm.trans hb'
      · exact nofun
      · exact h.popped

/-! ### Whole runs -/

lemma Inv.step {e : Label ι α} (h : Inv size s) (hsize : 0 < size)
    (hstep : step size s e = some t) (hdefined : t.undefined = false) : Inv size t :=
  ⟨h.write.step hsize (moves_of_step hstep) hdefined,
    h.read.step h.write hsize (moves_of_step hstep) hdefined⟩

variable {es : List (Label ι α)}

lemma inv_of_exec (hsize : 0 < size) (hrun : PartialStep.exec (step size) {} es = some s)
    (hdefined : s.undefined = false) : Inv size s := by
  refine PartialStep.exec_induction (P := fun _ _ => True)
    (I := fun s => s.undefined = false → Inv size s) ?_ (fun _ => inv_init hsize)
    (PartialStep.along_true _ _) hrun hdefined
  intro s e t h _ hstep ht
  exact (h ((moves_of_step hstep).defined ht)).step hsize hstep ht

/-! ### The order of the lines -/

/-- The line that a thread has brought and not found a slot for. -/
def Writer.waiting : Writer α → List α
  | .entered line | .spinning line => [line]
  | _ => []

/-- The lines that a thread has claimed slots for. -/
def claimed (s : State ι α) (i : ι) : List α := (s.claims.filter fun c => c.1 = i).map Prod.snd

/-- What a step gives to the queue in the name of a thread. -/
def Label.pushed (i : ι) : Label ι α → List α
  | .push j line => if j = i then [line] else []
  | _ => []

/-- What a thread has brought to the queue, with or without a slot. -/
def brought (s : State ι α) (i : ι) : List α := claimed s i ++ (s.pc i).waiting

lemma brought_write {w : Writing ι α} {q : Writer α} {j : ι} (hclaims : w.claims = s.claims)
    (hpc : w.pc = Function.update s.pc j q) (hq : q.waiting = (s.pc j).waiting) (i : ι) :
    brought (s.write w) i = brought s i := by
  unfold brought claimed
  show (w.claims.filter _).map _ ++ (w.pc i).waiting = _
  rw [hclaims, hpc]
  by_cases hij : i = j
  · rw [hij, Function.update_self, hq]
  · rw [Function.update_of_ne hij]

/-- **One step** brings what it pushes, and loses nothing. -/
lemma brought_of_step {e : Label ι α} (i : ι) (hstep : step size s e = some t)
    (hdefined : t.undefined = false) : brought t i = brought s i ++ e.pushed i := by
  have hsame (w : Writing ι α) (j : ι) (q : Writer α) (hclaims : w.claims = s.claims)
      (hpc : w.pc = Function.update s.pc j q) (hq : q.waiting = (s.pc j).waiting) :
      brought (s.write w) i = brought s i ++ [] := by
    rw [brought_write hclaims hpc hq, List.append_nil]
  cases moves_of_step hstep with
  | push j line hpc =>
      unfold brought claimed
      show (s.claims.filter _).map _ ++ (Function.update s.pc j (.entered line) i).waiting = _
      by_cases hij : i = j
      · subst hij
        rw [Function.update_self, hpc]
        simp [Writer.waiting, Label.pushed]
      · have hji : j ≠ i := fun heq => hij heq.symm
        rw [Function.update_of_ne hij]
        simp [Label.pushed, hji]
  | claim j line hpc =>
      unfold Writing.claim
      split
      · unfold brought claimed
        show ((s.claims ++ [(j, line)]).filter _).map _ ++
          (Function.update s.pc j (.claimed line s.writeIndex) i).waiting = _
        by_cases hij : i = j
        · subst hij
          rw [Function.update_self, hpc]
          simp [Writer.waiting, Label.pushed]
        · have hji : j ≠ i := fun heq => hij heq.symm
          rw [Function.update_of_ne hij]
          simp [Label.pushed, hji]
      · exact hsame _ j _ rfl rfl (by rw [hpc]; rfl)
  | spin j line hpc hlt => exact hsame _ j _ rfl rfl (by rw [hpc]; rfl)
  | load j line k hpc => exact hsame _ j _ rfl rfl (by rw [hpc]; rfl)
  | construct j line b k hpc hlive => exact hsame _ j _ rfl rfl (by rw [hpc]; rfl)
  | store j b k hpc hlive => exact hsame _ j _ rfl rfl (by rw [hpc]; rfl)
  | count j b k hpc hlive =>
      refine hsame _ j _ rfl rfl ?_
      rw [hpc]
      split <;> rfl
  | allocate j hpc => exact hsame _ j _ rfl rfl (by rw [hpc]; rfl)
  | link j hpc hflag => exact hsame (s.move j .linked) j _ rfl rfl (by rw [hpc]; rfl)
  | reset j hpc => exact hsame (s.reset j) j _ rfl rfl (by rw [hpc]; rfl)
  | stray => cases hdefined
  | fetch hreading hreleasing hflag => exact (List.append_nil _).symm
  | pop b line hreading hlive hstate hitem =>
      unfold State.take
      split <;> exact (List.append_nil _).symm
  | release b queue hreleasing hflag hqueue => exact (List.append_nil _).symm

/-- **The reader gets the lines in the order of the claims**, and each thread claims for its lines
in the order in which it pushes them: nothing is lost, doubled or overtaken on the way, as long as
no thread uses a freed buffer. -/
theorem popped_eq (hsize : 0 < size) (hrun : PartialStep.exec (step size) {} es = some s)
    (hdefined : s.undefined = false) :
    s.popped = (s.claims.take s.popped.length).map Prod.snd ∧
      ∀ i, claimed s i ++ (s.pc i).waiting = es.flatMap (Label.pushed i) := by
  refine ⟨(inv_of_exec hsize hrun hdefined).read.popped, fun i => ?_⟩
  exact (PartialStep.exec_record_of (f := fun s => brought s i)
    (D := fun s => s.undefined = false) (fun _ _ _ hstep => (moves_of_step hstep).defined)
    (fun _ _ _ => brought_of_step i) hrun hdefined).2

/-- A line on its way through the queue. -/
theorem popped_eq_one : ∃ s : State ℕ ℕ, PartialStep.exec (step Buffer.size) {}
      [.push 0 7, .claim 0, .push 1 8, .load 0, .construct 0, .store 0, .fetch, .pop] = some s ∧
    s.popped = (s.claims.take s.popped.length).map Prod.snd ∧ ∀ i, claimed s i ++ (s.pc i).waiting =
      [Label.push 0 7, .claim 0, .push 1 8, .load 0, .construct 0, .store 0, .fetch,
        .pop].flatMap (Label.pushed i) :=
  ⟨_, rfl, popped_eq (show 0 < Buffer.size by decide) rfl rfl⟩

/-- **`try_pop` comes back empty** only if the reader has got every line that a slot was claimed
for, or if the thread that claimed the next slot has not marked it yet; again as long as no thread
has used a freed buffer. -/
theorem drained_of_fails (hsize : 0 < size) (hrun : PartialStep.exec (step size) {} es = some s)
    (hdefined : s.undefined = false) (hfails : Fails s) :
    s.popped = s.claims.map Prod.snd ∨ ∃ i line, s.claims[s.popped.length]? = some (i, line) ∧
      (s.pc i).unmarked = true :=
  (inv_of_exec hsize hrun hdefined).drained hfails

/-- The reader waits for a thread that has claimed the first slot. -/
theorem drained_of_fails_claimed : ∃ s : State ℕ ℕ,
    PartialStep.exec (step Buffer.size) {} [.push 0 7, .claim 0, .fetch] = some s ∧
      (s.popped = s.claims.map Prod.snd ∨ ∃ i line, s.claims[s.popped.length]? = some (i, line) ∧
        (s.pc i).unmarked = true) := by
  have hrun : PartialStep.exec (step Buffer.size) ({} : State ℕ ℕ)
    [.push 0 7, .claim 0, .fetch] = some _ := rfl
  exact ⟨_, hrun, drained_of_fails (by decide) hrun rfl (.inr ⟨0, rfl, rfl⟩)⟩

end QueueBuffer

end Log

end S3Proxy
