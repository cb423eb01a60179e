import Mathlib.Tactic

/-!
# Threads and what they are about to do

A family of threads is given by their program points, `ι → π`.  A *view* `F : π → Option α` reads
off a program point whether its thread takes part in some activity, and with what; `Occurs F pc a`
says that some thread does so with `a`, and `Distinct F pc` that no two do so with the same.

## Main results

When one thread moves, an activity that occurs afterwards is that thread's own at its new point, or
occurred before (`Occurs.of_update`); and one that occurred before still does unless it was that
thread's own (`Occurs.update`).  `Occurs.of_update_none`, `Occurs.of_update_keep` and
`Occurs.update_none` are the cases in which the view of the thread that moves is empty, or stays
what it is.  `occurs_update_self` is the activity of the thread that moved.

`Distinct.update_none`, `Distinct.update_keep` and `Distinct.update_new` keep activities apart in
the same three cases; a thread may take one up that no other thread has.  `mem_iff_update`,
`mem_insert_iff_update` and `mem_erase_iff_update` follow the finite set of the threads that are at
points of some kind.

## Hypotheses

Equality of threads is decidable, so that one of them can move.  There may be any number of threads,
and nothing is assumed of the points.

## Where it is used

The invariants of the concurrent parts of the model say what holds of every thread by `Occurs`, so
that a step has to be examined for the thread that takes it only: the requests of
`Server.Interleaving` and `Server.Consistency`, the writers and the reader of `Log.Handover`, and
the producers and consumers of `Queue.Storage`, `Queue.Counts` and `Queue.Holding`.
-/

namespace Threads

variable {ι π α : Type*}

/-- Some thread is at a point that shows `a`. -/
def Occurs (F : π → Option α) (pc : ι → π) (a : α) : Prop := ∃ i, F (pc i) = some a

variable {F G : π → Option α} {pc : ι → π} {a : α} {i : ι}

lemma Occurs.of {q : π} (hpc : pc i = q) (h : F q = some a) : Occurs F pc a := ⟨i, hpc ▸ h⟩

/-- An activity that is part of another one. -/
lemma Occurs.mono (hFG : ∀ q, F q = some a → G q = some a) (h : Occurs F pc a) : Occurs G pc a :=
  h.imp fun _ => hFG _

lemma not_occurs_iff : (∀ a, ¬ Occurs F pc a) ↔ ∀ i, F (pc i) = none := by
  constructor
  · intro h i
    exact Option.eq_none_iff_forall_ne_some.mpr fun a ha => h a ⟨i, ha⟩
  · rintro h a ⟨i, hi⟩
    rw [h i] at hi
    cases hi

/-- What holds of every activity that occurs can be checked thread by thread. -/
lemma forall_occurs_iff {P : α → Prop} :
    (∀ a, Occurs F pc a → P a) ↔ ∀ i, ∀ a ∈ F (pc i), P a := by
  constructor
  · exact fun h i a ha => h a ⟨i, ha⟩
  · rintro h a ⟨i, hi⟩
    exact h i a hi

instance [Fintype ι] {P : α → Prop} [DecidablePred P] :
    Decidable (∀ a, Occurs F pc a → P a) :=
  decidable_of_iff _ forall_occurs_iff.symm

instance [Fintype ι] [DecidableEq α] : Decidable (Occurs F pc a) :=
  inferInstanceAs (Decidable (∃ _, _))

variable [DecidableEq ι] {q : π}

/-- What occurs after a move of one thread is new, or occurred before. -/
lemma Occurs.of_update (h : Occurs F (Function.update pc i q) a) :
    F q = some a ∨ Occurs F pc a := by
  obtain ⟨j, hj⟩ := h
  by_cases hji : j = i
  · subst hji
    rw [Function.update_self] at hj
    exact .inl hj
  · rw [Function.update_of_ne hji] at hj
    exact .inr ⟨j, hj⟩

/-- A thread that moves to a point without the activity starts none. -/
lemma Occurs.of_update_none (h : Occurs F (Function.update pc i q) a) (hq : F q = none) :
    Occurs F pc a :=
  h.of_update.resolve_left (by simp [hq])

/-- A thread that goes on with its activity starts none. -/
lemma Occurs.of_update_keep {r : π} (h : Occurs F (Function.update pc i q) a) (hpc : pc i = r)
    (hq : F r = F q) : Occurs F pc a :=
  h.of_update.elim (fun ha => .of hpc (hq.trans ha)) id

/-- What occurred before a move of one thread was its own, or still occurs. -/
lemma Occurs.update (h : Occurs F pc a) :
    F (pc i) = some a ∨ Occurs F (Function.update pc i q) a := by
  obtain ⟨j, hj⟩ := h
  by_cases hji : j = i
  · subst hji
    exact .inl hj
  · exact .inr ⟨j, by rw [Function.update_of_ne hji, hj]⟩

/-- A thread without the activity ends none by moving. -/
lemma Occurs.update_none (h : Occurs F pc a) (hi : F (pc i) = none) :
    Occurs F (Function.update pc i q) a :=
  h.update.resolve_left (by simp [hi])

/-- The new point of the thread that moved. -/
lemma occurs_update_self (h : F q = some a) : Occurs F (Function.update pc i q) a :=
  ⟨i, by rw [Function.update_self, h]⟩

/-! ### Activities of one thread at a time -/

/-- No two threads are at points that show the same. -/
def Distinct (F : π → Option α) (pc : ι → π) : Prop :=
  ∀ i j a, F (pc i) = some a → F (pc j) = some a → i = j

/-- A thread that moves to a point without the activity. -/
lemma Distinct.update_none (h : Distinct F pc) (hq : F q = none) :
    Distinct F (Function.update pc i q) := by
  intro j k a hj hk
  have hne : ∀ l, F (Function.update pc i q l) = some a → l ≠ i := by
    rintro l hl rfl
    rw [Function.update_self, hq] at hl
    cases hl
  rw [Function.update_of_ne (hne j hj)] at hj
  rw [Function.update_of_ne (hne k hk)] at hk
  exact h j k a hj hk

/-- A thread that goes on with its activity. -/
lemma Distinct.update_keep (h : Distinct F pc) (hq : F q = F (pc i)) :
    Distinct F (Function.update pc i q) := by
  have heq : ∀ l, F (Function.update pc i q l) = F (pc l) := by
    intro l
    by_cases hl : l = i
    · rw [hl, Function.update_self, hq]
    · rw [Function.update_of_ne hl]
  intro j k a hj hk
  rw [heq] at hj hk
  exact h j k a hj hk

/-- A thread that takes up an activity that no other one has. -/
lemma Distinct.update_new (h : Distinct F pc) (hq : F q = some a)
    (hnew : ∀ j, j ≠ i → F (pc j) ≠ some a) : Distinct F (Function.update pc i q) := by
  intro j k b hj hk
  by_cases hji : j = i
  · by_cases hki : k = i
    · rw [hji, hki]
    · rw [hji, Function.update_self, hq] at hj
      cases hj
      rw [Function.update_of_ne hki] at hk
      exact absurd hk (hnew k hki)
  · rw [Function.update_of_ne hji] at hj
    by_cases hki : k = i
    · rw [hki, Function.update_self, hq] at hk
      cases hk
      exact absurd hj (hnew j hji)
    · rw [Function.update_of_ne hki] at hk
      exact h j k b hj hk

/-! ### The threads at a kind of point -/

variable (P : π → Prop) {threads : Finset ι}

/-- A thread moves between points of another kind. -/
lemma mem_iff_update (h : ∀ j, j ∈ threads ↔ P (pc j)) (hi : ¬ P (pc i)) (hq : ¬ P q) (j : ι) :
    j ∈ threads ↔ P (Function.update pc i q j) := by
  by_cases hj : j = i
  · subst hj
    rw [Function.update_self, h]
    exact iff_of_false hi hq
  · rw [Function.update_of_ne hj, h]

/-- A thread comes to a point of the kind. -/
lemma mem_insert_iff_update (h : ∀ j, j ∈ threads ↔ P (pc j)) (hq : P q) (j : ι) :
    j ∈ insert i threads ↔ P (Function.update pc i q j) := by
  by_cases hj : j = i
  · subst hj
    rw [Function.update_self]
    exact iff_of_true (Finset.mem_insert_self ..) hq
  · rw [Function.update_of_ne hj, Finset.mem_insert, h]
    simp [hj]

/-- A thread leaves for a point of another kind. -/
lemma mem_erase_iff_update (h : ∀ j, j ∈ threads ↔ P (pc j)) (hq : ¬ P q) (j : ι) :
    j ∈ threads.erase i ↔ P (Function.update pc i q j) := by
  by_cases hj : j = i
  · subst hj
    rw [Function.update_self]
    exact iff_of_false (Finset.notMem_erase j threads) hq
  · rw [Function.update_of_ne hj, Finset.mem_erase, h]
    simp [hj]

end Threads
